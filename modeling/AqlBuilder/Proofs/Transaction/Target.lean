import AqlBuilder.Proofs.Column.Words
import AqlBuilder.Proofs.Transaction.Inferred

/-!
# The collection that a modification writes to

A modification is started by one of its keywords, and the next collection behind `IN` or `INTO` is
written. In front of the keyword everything is read, and so is everything behind that collection, if
no further modification is started there.

- `Modification` is a statement of this form: what stands in front starts no modification, and no
  collection stands between the keyword and the target.
- `Modifies.write_inferred`: then the target alone is declared for writing.
-/

namespace AqlBuilder

open Text Collections

/-- A statement that modifies one collection. -/
structure Modification where
  front : String
  /-- The word that starts the modification. -/
  keyword : String
  middle : String
  /-- The word in front of the collection. -/
  place : String
  tablePrefix : String
  table : String
  rest : String
  front_ends : EndsBlank front.toList
  front_avoids : Avoids .changes front
  keyword_mem : keyword ∈ writeKeywords
  middle_avoids : Avoids .places middle
  place_mem : place ∈ ["IN", "INTO"]
  isName : isCollectionName (tablePrefix ++ table).toList = true
  rest_begins : BeginsBlank rest.toList
  rest_avoids : Avoids .changes rest

/-- The text of a statement. -/
def Modification.aql (m : Modification) : String :=
  m.front ++ m.keyword ++ " " ++ m.middle ++ " " ++ m.place ++ " "
    ++ Aql.collectionName m.tablePrefix m.table ++ m.rest

/-- The collection that a statement modifies. -/
def Modification.target (m : Modification) : String := m.tablePrefix ++ m.table

/-- A text is a statement that modifies a collection. -/
def Modifies (aql name : String) : Prop := ∃ m : Modification, m.aql = aql ∧ m.target = name

/-- A statement that ends with its target. -/
theorem modifies_in {aql front keyword middle tablePrefix table : String}
    (hends : EndsBlank front.toList) (hfront : Avoids .changes front)
    (hkeyword : keyword ∈ writeKeywords) (hmiddle : Avoids .places middle)
    (hname : isCollectionName (tablePrefix ++ table).toList = true)
    (haql : aql = front ++ keyword ++ " " ++ middle ++ " IN "
      ++ Aql.collectionName tablePrefix table) : Modifies aql (tablePrefix ++ table) := by
  let m : Modification :=
    { front, keyword, middle, tablePrefix, table
      place := "IN"
      rest := ""
      front_ends := hends
      front_avoids := hfront
      keyword_mem := hkeyword
      middle_avoids := hmiddle
      place_mem := List.mem_cons_self
      isName := hname
      rest_begins := fun c hc => nomatch hc
      rest_avoids := avoidsIn_nil }
  refine ⟨m, ?_, rfl⟩
  rw [haql]
  simp [m, Modification.aql, ← String.toList_inj]

namespace Collections

variable {front middle : List (List Char)} {place collection : List Char} {name : String}

/-- Before a modification is started, nothing is written. -/
theorem mentioned_selecting (h : ∀ w ∈ front, isOneOf writeKeywords w = false)
    (farther nearer : List Char) (rest : List (List Char)) : ∃ mentions farther' nearer',
      mentioned farther nearer false (front ++ rest) =
        mentions ++ mentioned farther' nearer' false rest ∧
      mentions.filterMap Mention.write? = [] := by
  induction front generalizing farther nearer with
  | nil => exact ⟨[], farther, nearer, rfl, rfl⟩
  | cons word front ih =>
      obtain ⟨mentions, farther', nearer', hmentioned, hnone⟩ :=
        ih (fun w hw => h w (List.mem_cons_of_mem word hw)) nearer word
      have hword : ¬isOneOf writeKeywords word = true := by
        rw [h word List.mem_cons_self]
        exact Bool.false_ne_true
      rw [List.cons_append, mentioned, if_neg hword]
      split
      · split
        · exact ⟨mentions, farther', nearer', hmentioned, hnone⟩
        · rename_i other _
          rw [if_neg Bool.false_ne_true]
          split
          · refine ⟨.read other :: mentions, farther', nearer', by rw [hmentioned]; rfl, ?_⟩
            rw [List.filterMap_cons]
            exact hnone
          · exact ⟨mentions, farther', nearer', hmentioned, hnone⟩
      · exact ⟨mentions, farther', nearer', hmentioned, hnone⟩

/-- Without `IN` and `INTO` no collection is mentioned, and a modification stays started. -/
theorem mentioned_changing (h : ∀ w ∈ middle, isOneOf ["IN", "INTO"] w = false)
    (farther nearer : List Char) (rest : List (List Char)) : ∃ farther' nearer',
      mentioned farther nearer true (middle ++ rest) = mentioned farther' nearer' true rest := by
  induction middle generalizing farther nearer with
  | nil => exact ⟨farther, nearer, rfl⟩
  | cons word middle ih =>
      obtain ⟨farther', nearer', hmentioned⟩ :=
        ih (fun w hw => h w (List.mem_cons_of_mem word hw)) nearer word
      refine ⟨farther', nearer', ?_⟩
      rw [← hmentioned, List.cons_append, mentioned, h word List.mem_cons_self]
      split <;> rfl

/-- The collection of a started modification is written. -/
theorem mentioned_target (hplace : isOneOf ["IN", "INTO"] place = true)
    (hwrite : isOneOf writeKeywords place = false) (hname : nameIn? collection = some name)
    (farther nearer : List Char) (rest : List (List Char)) :
    mentioned farther nearer true (place :: collection :: rest) =
      .write name :: mentioned nearer place false (collection :: rest) := by
  have hnot : ¬isOneOf writeKeywords place = true := by
    rw [hwrite]
    exact Bool.false_ne_true
  rw [mentioned, if_neg hnot, if_pos hplace]
  simp only [List.head?_cons, Option.bind_some, hname]
  rw [if_pos trivial]

end Collections

namespace Modification

/-- The words of a statement. -/
theorem words_aql (m : Modification) : words m.aql.toList =
    words m.front.toList ++ m.keyword.toList :: (words m.middle.toList ++ m.place.toList ::
      (Aql.collectionName m.tablePrefix m.table).toList :: words m.rest.toList) := by
  have hblank : isBlank ' ' = true := by decide
  have hkeyword : ∀ keyword ∈ writeKeywords, words keyword.toList = [keyword.toList] := by decide
  have hplace : ∀ place ∈ ["IN", "INTO"], words place.toList = [place.toList] := by decide
  have hcollection := isWord_collectionName m.isName
  have htext : m.aql.toList = m.front.toList ++ (m.keyword.toList ++ ' ' :: (m.middle.toList ++
      ' ' :: (m.place.toList ++ ' ' :: ((Aql.collectionName m.tablePrefix m.table).toList ++
        m.rest.toList)))) := by
    simp [aql]
  rw [htext, m.front_ends.words_append, words_append_blank hblank, words_append_blank hblank,
    words_append_blank hblank, m.rest_begins.words_append, hkeyword _ m.keyword_mem,
    hplace _ m.place_mem, hcollection.solid.words_eq hcollection.ne_nil]
  simp only [List.singleton_append]

/-- One collection is written. -/
theorem write_inferred (m : Modification) : (inferred m.aql).write = [m.target] := by
  have hkeyword : ∀ keyword ∈ writeKeywords, isOneOf writeKeywords keyword.toList = true := by
    decide
  have hplace : ∀ place ∈ ["IN", "INTO"], isOneOf ["IN", "INTO"] place.toList = true ∧
      isOneOf writeKeywords place.toList = false := by decide
  obtain ⟨hin, hwrite⟩ := hplace _ m.place_mem
  have hcollection : Avoids .changes (Aql.collectionName m.tablePrefix m.table) :=
    (Aql.avoids_collectionName (solid_of_isCollectionName m.isName)).mono (by decide)
  have hone : isOneOf writeKeywords (Aql.collectionName m.tablePrefix m.table).toList = false := by
    refine hcollection _ ?_
    rw [(isWord_collectionName m.isName).solid.words_eq (isWord_collectionName m.isName).ne_nil]
    exact List.mem_singleton_self _
  obtain ⟨before, farther, nearer, hbefore, hnone⟩ := mentioned_selecting m.front_avoids [] [] _
  obtain ⟨farther', nearer', hchanging⟩ :=
    mentioned_changing m.middle_avoids nearer m.keyword.toList _
  obtain ⟨behind, last, last', hbehind, hnone'⟩ := mentioned_selecting
    (List.forall_mem_cons.mpr ⟨hone, m.rest_avoids⟩) nearer' m.place.toList []
  rw [List.append_nil, mentioned, List.append_nil] at hbehind
  have hmentioned : mentioned [] [] false (words m.aql.toList) =
      before ++ .write m.target :: behind := by
    rw [m.words_aql, hbefore, mentioned, if_pos (hkeyword _ m.keyword_mem), hchanging,
      mentioned_target hin hwrite (nameIn?_collectionName m.isName), hbehind]
    rfl
  have hwritten : (mentioned [] [] false (words m.aql.toList)).filterMap Mention.write? =
      [m.target] := by
    rw [hmentioned, List.filterMap_append, hnone, List.filterMap_cons, hnone']
    rfl
  unfold inferred normalized
  dsimp only
  rw [hwritten]
  rfl

end Modification

/-- **The target alone is declared for writing.** -/
theorem Modifies.write_inferred {aql name : String} (h : Modifies aql name) :
    (inferred aql).write = [name] := by
  obtain ⟨m, rfl, rfl⟩ := h
  exact m.write_inferred

end AqlBuilder

import AqlBuilder.Aql.Loop
import AqlBuilder.Proofs.Text.Stands
import AqlBuilder.Transaction.Collections

/-!
# What inferred declarations contain

A loop is found in the words of a statement if its keyword is a word there, but for parentheses in
front of it. Whether a modification has been started at that point decides only in which list its
collection is put; in the end everything that is written is also read.

- `Iterates` says that a statement has a loop over a collection.
- `Collections.mem_read_of_iterates`: such a collection is declared for reading.
- `Collections.write_subset_read`: so is everything that is declared for writing.
-/

namespace AqlBuilder

open Text

/-- A name that is one word. -/
structure IsWord (name : String) : Prop where
  solid : Solid name.toList
  ne_nil : name.toList ≠ []

/-- A statement has a loop over a collection with a name, and the keyword of the loop stands behind
a blank, at the front or behind parentheses. -/
def Iterates (aql name : String) : Prop :=
  ∃ docVar tablePrefix table, IsWord docVar ∧ tablePrefix ++ table = name ∧
    Collections.isCollectionName name.toList = true ∧
    Begins (Aql.loop docVar (Aql.collectionName tablePrefix table) ++ " ") aql

theorem isWord_iff {name : String} : IsWord name ↔ Solid name.toList ∧ name.toList ≠ [] :=
  ⟨fun h => ⟨h.solid, h.ne_nil⟩, fun h => ⟨h.1, h.2⟩⟩

namespace Collections

section names

variable {name : List Char}

/-- The name of a collection consists of characters of names and dashes. -/
theorem isCollectionName_chars (h : isCollectionName name = true) :
    ∀ c ∈ name, isNameChar c = true ∨ c = '-' := by
  cases name with
  | nil => cases h
  | cons c rest =>
      unfold isCollectionName at h
      intro d hd
      have hall := (Bool.and_eq_true _ _ ▸ h).2
      have hchar := List.all_eq_true.mp hall d hd
      simpa using hchar

/-- The name of a collection is not empty. -/
theorem isCollectionName_ne_nil (h : isCollectionName name = true) : name ≠ [] := by
  intro hnil
  rw [hnil] at h
  cases h

/-- A character that is in no name of a collection. -/
theorem not_mem_of_isCollectionName (h : isCollectionName name = true) (mark : Char)
    (hmark : (isNameChar mark || mark == '-') = false) : mark ∉ name := by
  intro hmem
  rw [Bool.or_eq_false_iff, beq_eq_false_iff_ne] at hmark
  rcases isCollectionName_chars h mark hmem with hchar | hminus
  · rw [hmark.1] at hchar
    cases hchar
  · exact hmark.2 hminus

/-- The name of a collection has no blanks. -/
theorem solid_of_isCollectionName (h : isCollectionName name = true) : Solid name := by
  intro c hc
  rcases isCollectionName_chars h c hc with hchar | rfl
  · exact isBlank_of_isNameChar hchar
  · decide

/-- Nothing is dropped from the end of a word without such characters. -/
theorem rdropWhile_of_notMem {accept : Char → Bool} {word : List Char}
    (h : ∀ c ∈ word, accept c = false) : word.rdropWhile accept = word := by
  rw [List.rdropWhile_eq_self_iff]
  intro hne
  rw [h _ (List.getLast_mem hne)]
  exact Bool.false_ne_true

/-- Nothing is dropped from the front of a word without such characters. -/
theorem dropWhile_of_notMem {accept : Char → Bool} {word : List Char}
    (h : ∀ c ∈ word, accept c = false) : word.dropWhile accept = word := by
  cases word with
  | nil => rfl
  | cons c rest => rw [List.dropWhile_cons, h c List.mem_cons_self, if_neg Bool.false_ne_true]

/-- There is neither a closing parenthesis nor a comma in the name of a collection. -/
theorem closes_not_mem (h : isCollectionName name = true) :
    ∀ c ∈ name, (c == ')' || c == ',') = false := by
  intro c hc
  have hparen := ne_of_mem_of_not_mem hc (not_mem_of_isCollectionName h ')' (by decide))
  have hcomma := ne_of_mem_of_not_mem hc (not_mem_of_isCollectionName h ',' (by decide))
  simp [hparen, hcomma]

/-- There is no backtick in the name of a collection. -/
theorem tick_not_mem (h : isCollectionName name = true) :
    ∀ c ∈ name, (c == '\x60') = false := by
  intro c hc
  have htick := ne_of_mem_of_not_mem hc (not_mem_of_isCollectionName h '\x60' (by decide))
  simp [htick]

/-- A name stands for itself. -/
theorem bareWord_name (h : isCollectionName name = true) : bareWord name = name := by
  change ((name.rdropWhile fun c => c == ')' || c == ',').dropWhile (· == '\x60')).rdropWhile
    (· == '\x60') = name
  rw [rdropWhile_of_notMem (closes_not_mem h), dropWhile_of_notMem (tick_not_mem h),
    rdropWhile_of_notMem (tick_not_mem h)]

/-- The name of a collection is put between backticks as it is. -/
theorem ticked_name (h : isCollectionName name = true) :
    Aql.ticked name = '\x60' :: name ++ ['\x60'] :=
  Aql.ticked_of_notMem fun htick => by simpa using tick_not_mem h _ htick

/-- A name between backticks stands for the name. -/
theorem bareWord_ticked (h : isCollectionName name = true) :
    bareWord (Aql.ticked name) = name := by
  have hcloses : (Aql.ticked name).rdropWhile (fun c => c == ')' || c == ',') =
      Aql.ticked name := List.rdropWhile_concat_neg _ _ _ (by decide)
  have hopen : (Aql.ticked name).dropWhile (· == '\x60') = name ++ ['\x60'] := by
    rw [ticked_name h]
    obtain ⟨c, rest, hname⟩ := List.exists_cons_of_ne_nil (isCollectionName_ne_nil h)
    have hc : (c == '\x60') = false := tick_not_mem h c (by simp [hname])
    rw [hname]
    simp [hc]
  change (((Aql.ticked name).rdropWhile fun c => c == ')' || c == ',').dropWhile
    (· == '\x60')).rdropWhile (· == '\x60') = name
  rw [hcloses, hopen, List.rdropWhile_concat_pos _ _ _ (by decide),
    rdropWhile_of_notMem (tick_not_mem h)]

/-- A collection in a statement is recognized by its name. -/
theorem nameIn?_collectionName {tablePrefix table : String}
    (h : isCollectionName (tablePrefix ++ table).toList = true) :
    nameIn? (Aql.collectionName tablePrefix table).toList = some (tablePrefix ++ table) := by
  have hname : bareWord (Aql.collectionName tablePrefix table).toList =
      (tablePrefix ++ table).toList := by
    unfold Aql.collectionName
    dsimp only
    split
    · exact bareWord_name h
    · rw [String.toList_ofList]
      exact bareWord_ticked h
  unfold nameIn?
  rw [hname]
  dsimp only
  rw [if_pos h, String.ofList_toList]

/-- A collection with such a name is one word. -/
theorem isWord_collectionName {tablePrefix table : String}
    (h : isCollectionName (tablePrefix ++ table).toList = true) :
    IsWord (Aql.collectionName tablePrefix table) := by
  have hsolid := solid_of_isCollectionName h
  unfold Aql.collectionName
  dsimp only
  split
  · exact ⟨hsolid, isCollectionName_ne_nil h⟩
  · rw [isWord_iff, String.toList_ofList, ticked_name h]
    have htick : Solid ['\x60'] := by decide
    exact ⟨(htick.append hsolid).append htick, by simp⟩

end names

section scanning

variable {farther nearer word : List Char} {writing : Bool} {front rest : List (List Char)}

/-- A word mentions a collection or not, and the search goes on behind it. -/
theorem mentioned_cons (farther nearer word : List Char) (writing : Bool)
    (rest : List (List Char)) : ∃ mentions writing',
      mentioned farther nearer writing (word :: rest) =
        mentions ++ mentioned nearer word writing' rest := by
  rw [mentioned]
  split
  · exact ⟨[], true, rfl⟩
  split
  · split
    · exact ⟨[], writing, rfl⟩
    · rename_i name _
      split
      · exact ⟨[.write name], false, rfl⟩
      split
      · exact ⟨[.read name], writing, rfl⟩
      · exact ⟨[], writing, rfl⟩
  · exact ⟨[], writing, rfl⟩

/-- The search goes on behind any words. -/
theorem mentioned_append (farther nearer : List Char) (writing : Bool)
    (front rest : List (List Char)) : ∃ mentions farther' nearer' writing',
      mentioned farther nearer writing (front ++ rest) =
        mentions ++ mentioned farther' nearer' writing' rest := by
  induction front generalizing farther nearer writing with
  | nil => exact ⟨[], farther, nearer, writing, rfl⟩
  | cons word front ih =>
      obtain ⟨first, writing', hfirst⟩ := mentioned_cons farther nearer word writing (front ++ rest)
      obtain ⟨others, farther', nearer', writing'', hothers⟩ := ih nearer word writing'
      refine ⟨first ++ others, farther', nearer', writing'', ?_⟩
      rw [List.cons_append, hfirst, hothers, List.append_assoc]

/-- The collection behind the second keyword of a loop is read or written. -/
theorem mentioned_in {collection : List Char} {name : String}
    (hloop : startsLoop farther = true) (hname : nameIn? collection = some name)
    (nearer : List Char) (writing : Bool) (rest : List (List Char)) :
    .read name ∈ mentioned farther nearer writing ("IN".toList :: collection :: rest) ∨
      .write name ∈ mentioned farther nearer writing ("IN".toList :: collection :: rest) := by
  have hwrite : ¬isOneOf writeKeywords "IN".toList = true := by decide
  have hin : isOneOf ["IN", "INTO"] "IN".toList = true := by decide
  rw [mentioned, if_neg hwrite, if_pos hin]
  simp only [List.head?_cons, Option.bind_some, hname]
  cases writing with
  | true => exact Or.inr List.mem_cons_self
  | false =>
      rw [if_neg Bool.false_ne_true, if_pos hloop]
      exact Or.inl List.mem_cons_self

/-- The collection behind the words of a loop is read or written. -/
theorem mentioned_loop {docVar collection : List Char} {name : String}
    (hloop : startsLoop word = true) (hname : nameIn? collection = some name)
    (farther nearer : List Char) (writing : Bool) (rest : List (List Char)) :
    .read name ∈ mentioned farther nearer writing
        (word :: docVar :: "IN".toList :: collection :: rest) ∨
      .write name ∈ mentioned farther nearer writing
        (word :: docVar :: "IN".toList :: collection :: rest) := by
  obtain ⟨first, writing₁, hfirst⟩ := mentioned_cons farther nearer word writing
    (docVar :: "IN".toList :: collection :: rest)
  obtain ⟨second, writing₂, hsecond⟩ := mentioned_cons nearer word docVar writing₁
    ("IN".toList :: collection :: rest)
  rw [hfirst, hsecond]
  refine (mentioned_in hloop hname docVar writing₂ rest).imp (fun h => ?_) (fun h => ?_)
  · exact List.mem_append_right _ (List.mem_append_right _ h)
  · exact List.mem_append_right _ (List.mem_append_right _ h)

/-- Parentheses in front of the keyword of a loop are passed over. -/
theorem startsLoop_append {marks : List Char} (h : ∀ c ∈ marks, c = '(') :
    startsLoop (marks ++ "FOR".toList) = true := by
  unfold startsLoop
  rw [List.dropWhile_append_of_pos fun c hc => by simp [h c hc]]
  decide

end scanning

section declarations

variable {names further : List String} {name : String} {aql : String}

/-- Adding a name adds this one and no other. -/
theorem mem_addName {other : String} :
    name ∈ addName names other ↔ name ∈ names ∨ name = other := by
  unfold addName
  split
  · rename_i hthere
    have hmem : other ∈ names := List.contains_iff_mem.mp hthere
    constructor
    · exact Or.inl
    · rintro (hname | rfl)
      · exact hname
      · exact hmem
  · rw [List.mem_append, List.mem_singleton]

/-- Adding names adds these and no others. -/
theorem mem_addNames : name ∈ addNames names further ↔ name ∈ names ∨ name ∈ further := by
  induction further generalizing names with
  | nil => simp [addNames]
  | cons first rest ih =>
      change name ∈ addNames (addName names first) rest ↔ _
      rw [ih, mem_addName, List.mem_cons, or_assoc]

/-- What is written is read as well. -/
theorem mem_read_normalized {c : Collections} :
    name ∈ c.normalized.read ↔ name ∈ c.read ∨ name ∈ c.write := by
  unfold normalized
  rw [mem_addNames, List.mem_append]
  simp

/-- What is written stays so. -/
theorem mem_write_normalized {c : Collections} : name ∈ c.normalized.write ↔ name ∈ c.write := by
  unfold normalized
  rw [mem_addNames]
  simp

/-- Everything that is written is read. -/
theorem write_subset_read (aql : String) : (inferred aql).write ⊆ (inferred aql).read := by
  intro name hname
  exact mem_read_normalized.mpr (Or.inr (mem_write_normalized.mp hname))

/-- A loop in a text is four of its words, with parentheses in front of the first. -/
theorem words_of_iterates (h : Iterates aql name) :
    ∃ front keyword docVar collection rest, startsLoop keyword = true ∧
      nameIn? collection = some name ∧
      words aql.toList = front ++ keyword :: docVar :: "IN".toList :: collection :: rest := by
  obtain ⟨docVar, tablePrefix, table, hvar, rfl, hname, before, after, htext, hopens⟩ := h
  have hcollection := isWord_collectionName hname
  have hblank : isBlank ' ' = true := by decide
  have hfor : Solid (before.rtakeWhile (!isBlank ·) ++ "FOR".toList) :=
    (solid_rtakeWhile before).append (by decide)
  have hin : Solid "IN".toList := by decide
  refine ⟨words (before.rdropWhile (!isBlank ·)),
    before.rtakeWhile (!isBlank ·) ++ "FOR".toList, docVar.toList,
    (Aql.collectionName tablePrefix table).toList, words after, startsLoop_append hopens,
    nameIn?_collectionName hname, ?_⟩
  have hsplit : aql.toList = before.rdropWhile (!isBlank ·) ++
      ((before.rtakeWhile (!isBlank ·) ++ "FOR".toList) ++ ' ' :: (docVar.toList ++ ' ' ::
        ("IN".toList ++ ' ' ::
          ((Aql.collectionName tablePrefix table).toList ++ ' ' :: after)))) := by
    rw [htext, ← List.append_assoc, ← List.append_assoc, List.rdropWhile_append_rtakeWhile]
    simp [Aql.loop]
  rw [hsplit, (endsBlank_rdropWhile before).words_append, words_append_blank hblank,
    words_append_blank hblank, words_append_blank hblank, words_append_blank hblank,
    hfor.words_eq (by simp), hvar.solid.words_eq hvar.ne_nil, hin.words_eq (by decide),
    hcollection.solid.words_eq hcollection.ne_nil]
  simp only [List.singleton_append]

/-- **A collection that a statement iterates over is declared for reading.** -/
theorem mem_read_of_iterates (h : Iterates aql name) : name ∈ (inferred aql).read := by
  obtain ⟨front, keyword, docVar, collection, rest, hkeyword, hcollection, hwords⟩ :=
    words_of_iterates h
  obtain ⟨mentions, farther, nearer, writing, hmentioned⟩ := mentioned_append [] [] false front
    (keyword :: docVar :: "IN".toList :: collection :: rest)
  refine mem_read_normalized.mpr ?_
  rw [hwords, hmentioned]
  rcases mentioned_loop hkeyword hcollection farther nearer writing rest with hread | hwrite
  · left
    exact List.mem_filterMap.mpr ⟨.read name, List.mem_append_right _ hread, rfl⟩
  · right
    exact List.mem_filterMap.mpr ⟨.write name, List.mem_append_right _ hwrite, rfl⟩

end declarations

end Collections

end AqlBuilder

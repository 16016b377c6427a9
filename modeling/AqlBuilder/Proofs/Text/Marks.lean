import AqlBuilder.Column.Resolve
import AqlBuilder.Proofs.Binding.References
import AqlBuilder.Proofs.Text.Compact
import AqlBuilder.Query.Clause

/-!
# Where marks come from

Cutting, trimming, quoting and renaming bring no mark into a text: each `@` of a result stands in
the text that it was made from. A generated document variable has none at all, and no blanks.

- `Text.mem_splitArrow`, `Text.mem_cutAs`, `Text.mem_trimBlanks`: the characters of the pieces.
- `Alias.unmarked_documentVariable`, `Alias.solid_documentVariable`, `Aql.unmarked_objectKey`: the
  names that are written.
- `Text.Flush` is a text that begins with no blank.
-/

namespace AqlBuilder

namespace Text

variable {text piece before after : List Char} {c : Char}

/-- The characters between arrows are characters of the text. -/
theorem mem_splitArrow (hpiece : piece ∈ splitArrow text) (hc : c ∈ piece) : c ∈ text := by
  induction text using splitArrow.induct generalizing piece with
  | case1 =>
      rw [splitArrow, List.mem_singleton] at hpiece
      rw [hpiece] at hc
      cases hc
  | case2 rest ih =>
      rw [splitArrow, List.mem_cons] at hpiece
      rcases hpiece with rfl | hpiece
      · cases hc
      · simp [ih hpiece hc]
  | case3 d rest hne ih =>
      rw [splitArrow] at hpiece
      · rcases mem_consPiece hpiece with hpiece | ⟨tail, rfl, htail⟩
        · exact List.mem_cons_of_mem d (ih hpiece hc)
        · rcases List.mem_cons.mp hc with rfl | hc
          · exact List.mem_cons_self
          · rcases htail with rfl | htail
            · cases hc
            · exact List.mem_cons_of_mem d (ih htail hc)
      · exact hne

/-- Replacing arrows by dots brings in no mark. -/
theorem mark_dotArrows (h : '@' ∈ dotArrows text) : '@' ∈ text := by
  induction text using dotArrows.induct with
  | case1 => cases h
  | case2 rest ih =>
      rw [dotArrows] at h
      rcases List.mem_cons.mp h with h | h
      · cases h
      · simp [ih h]
  | case3 d rest hne ih =>
      rw [dotArrows] at h
      · rcases List.mem_cons.mp h with rfl | h
        · exact List.mem_cons_self
        · exact List.mem_cons_of_mem d (ih h)
      · exact hne

/-- The characters that trimming leaves are characters of the text. -/
theorem mem_trimBlanks (h : c ∈ trimBlanks text) : c ∈ text := by
  rw [trimBlanks, dropEndWhile, List.mem_reverse] at h
  have hfront := List.mem_reverse.mp ((List.dropWhile_sublist _).subset h)
  exact (List.dropWhile_sublist _).subset hfront

/-- The characters on both sides of a cut are characters of the text. -/
theorem mem_cutAt {mark : Char} (h : cutAt mark text = some (before, after)) :
    c ∈ before ∨ c ∈ after → c ∈ text := by
  rw [eq_append_of_cutAt h, List.mem_append, List.mem_cons]
  exact Or.imp_right Or.inr

/-- The characters behind a mark of an alias are characters of the text. -/
theorem mem_afterAs (h : afterAs? text = some after) (hc : c ∈ after) : c ∈ text := by
  unfold afterAs? at h
  split at h
  · split at h
    · cases h
      simp [hc]
    · cases h
  · cases h

/-- The characters on both sides of an alias mark are characters of the text. -/
theorem mem_cutAs (h : cutAs text = some (before, after)) :
    c ∈ before ∨ c ∈ after → c ∈ text := by
  induction text generalizing before after with
  | nil => cases h
  | cons d rest ih =>
      unfold cutAs at h
      cases has : afterAs? (d :: rest) with
      | some behind =>
          rw [has] at h
          cases h
          rintro (hc | hc)
          · cases hc
          · exact mem_afterAs has hc
      | none =>
          rw [has] at h
          obtain ⟨⟨first, last⟩, hcut, heq⟩ := Option.map_eq_some_iff.mp h
          cases heq
          rintro (hc | hc)
          · rcases List.mem_cons.mp hc with rfl | hc
            · exact List.mem_cons_self
            · exact List.mem_cons_of_mem d (ih hcut (Or.inl hc))
          · exact List.mem_cons_of_mem d (ih hcut (Or.inr hc))

/-- A text that does not begin with a blank. -/
def Flush (text : List Char) : Prop := ∀ c ∈ text.head?, isBlank c = false

theorem Solid.flush (h : Solid text) : Flush text := fun c hc => h c (List.mem_of_mem_head? hc)

end Text

section names

variable {text : String}

/-- A text without marks has none when it is trimmed. -/
theorem unmarked_trimBlanks {text : List Char} (h : '@' ∉ text) :
    Unmarked (String.ofList (Text.trimBlanks text)) :=
  unmarked_ofList.mpr fun hmark => h (Text.mem_trimBlanks hmark)

/-- A generated document variable has no mark, whatever the collection is called. -/
theorem Alias.unmarked_documentVariable [Naming] (table : String) :
    Unmarked (documentVariable table) := by
  refine Unmarked.append ?_ (by decide)
  exact fun hmark => (Naming.clean table '@' hmark).1 rfl

/-- It has no blank either. -/
theorem Alias.solid_documentVariable [Naming] (table : String) :
    Text.Solid (documentVariable table).toList := by
  rw [documentVariable, elementVariable, String.toList_append]
  exact Text.Solid.append (fun c hc => (Naming.clean table c hc).2) (by decide)

/-- A name and its alias are parts of the text that they are written in. -/
theorem unmarked_tableAndAlias (h : Unmarked text) :
    Unmarked (tableAndAlias text).1 ∧ ∀ asName ∈ (tableAndAlias text).2, Unmarked asName := by
  have htrim : '@' ∉ Text.trimBlanks text.toList := fun hmark => h (Text.mem_trimBlanks hmark)
  unfold tableAndAlias nameAndAlias?
  cases hcut : Text.cutAs (Text.trimBlanks text.toList) with
  | none => exact ⟨unmarked_ofList.mpr htrim, fun asName hnone => by cases hnone⟩
  | some parts =>
      obtain ⟨name, asName⟩ := parts
      refine ⟨unmarked_trimBlanks fun hmark => htrim (Text.mem_cutAs hcut (Or.inl hmark)), ?_⟩
      intro other hother
      cases hother
      exact unmarked_trimBlanks fun hmark => htrim (Text.mem_cutAs hcut (Or.inr hmark))

/-- A name without marks has none when it is renamed. -/
theorem unmarked_renamed {source target name : String} (htarget : Unmarked target)
    (h : Unmarked name) : Unmarked (renamed source target name) := by
  unfold renamed
  split
  · exact htarget
  · exact h

/-- A character that is no mark is quoted without marks. -/
theorem Json.mark_notMem_quoteChar {c : Char} (hc : c ≠ '@') : '@' ∉ quoteChar c := by
  by_cases hascii : Text.isAscii c = true
  · exact Text.ascii_cases (p := fun d => d ≠ '@' → '@' ∉ quoteChar d) (by decide +kernel) hascii hc
  · have hge : 128 ≤ c.toNat := by simpa [Text.isAscii] using hascii
    have hne : ∀ d : Char, d.toNat < 128 → c ≠ d := by
      intro d hd heq
      rw [heq] at hge
      omega
    have hlt : ¬ c.toNat < 0x20 := by omega
    simp only [quoteChar, hne '"' (by decide), hne '\\' (by decide), hne '\x08' (by decide),
      hne '\x0c' (by decide), hne '\n' (by decide), hne '\r' (by decide), hne '\t' (by decide), hlt,
      if_false]
    simpa using Ne.symm hc

/-- A text without marks is quoted without marks. -/
theorem Json.unmarked_quote (h : Unmarked text) : Unmarked (quote text) := by
  rw [quote, unmarked_ofList]
  simp only [List.cons_append, List.mem_cons, List.mem_append, List.mem_flatMap, not_or, not_exists,
    not_and]
  refine ⟨by decide, fun c hc => mark_notMem_quoteChar fun heq => ?_, by decide, by simp⟩
  rw [heq] at hc
  exact h hc

namespace Aql

/-- A name without marks has none between backticks. -/
theorem mark_notMem_ticked {name : List Char} (h : '@' ∉ name) : '@' ∉ ticked name := by
  have hescape : '@' ∉ escapeTicks name := by
    intro hmark
    obtain ⟨c, hc, hmem⟩ := List.mem_flatMap.mp hmark
    split at hmem
    · revert hmem
      decide
    · rw [List.mem_singleton] at hmem
      rw [hmem] at h
      exact h hc
  simp only [ticked, List.cons_append, List.mem_cons, List.mem_append, not_or]
  exact ⟨by decide, hescape, by decide, by simp⟩

/-- The name of a collection has no mark if neither prefix nor name has one. -/
theorem unmarked_collectionName {tablePrefix name : String} (hpre : Unmarked tablePrefix)
    (h : Unmarked name) : Unmarked (collectionName tablePrefix name) := by
  have hfull := hpre.append h
  unfold collectionName
  dsimp only
  split
  · exact hfull
  · exact unmarked_ofList.mpr (mark_notMem_ticked hfull)

/-- A key without marks is written without them. -/
theorem unmarked_objectKey {name : String} (h : Unmarked name) : Unmarked (objectKey name) := by
  unfold objectKey
  split
  · exact h
  · exact Json.unmarked_quote h

/-- An object literal is covered if its attributes are. -/
theorem covered_objectLiteral {names : Set String} {entries : List (String × String)}
    (h : ∀ entry ∈ entries, Unmarked entry.1 ∧ Covered names entry.2) :
    Covered names (objectLiteral entries) := by
  have hfields : Covered names
      (", ".intercalate (entries.map fun entry => objectKey entry.1 ++ ": " ++ entry.2)) := by
    refine covered_intercalate (by decide) fun field hfield => ?_
    obtain ⟨entry, hentry, rfl⟩ := List.mem_map.mp hfield
    obtain ⟨hkey, hvalue⟩ := h entry hentry
    exact ((unmarked_objectKey hkey).append (by decide)).covered_append hvalue
  have hopen : Unmarked "\x7b" := by decide
  rw [objectLiteral_eq]
  exact (hopen.covered_append hfields).closed (by decide) (by decide)

end Aql

end names

end AqlBuilder

import AqlBuilder.Proofs.Binding.References
import AqlBuilder.Proofs.Binding.Store

/-!
# Names of bound values as a code

The name of a bound value says where the value comes from, and says it without loss: the name can be
recognised among all texts, no two origins share a name, and a statement refers to a name only where
the name ends. So `1_where_1` is found neither in a reference to `1_where_10` nor in one to
`11_where_1`.

- `isPlaceholder_iff`: the texts that are recognised, character by character.
- `mem_referencesIn_iff`: a reference is a mark with the longest name behind it.
- `placeholders_are_a_code` puts the names that are given, those that are recognised and those that
  are found together.
-/

namespace AqlBuilder

/-- One or more of the digits from 0 to 9. -/
def Digits (text : List Char) : Prop := text ≠ [] ∧ ∀ c ∈ text, '0' ≤ c ∧ c ≤ '9'

section recognised

/-- The test for digits accepts one or more of them. -/
theorem isDigits_iff {text : List Char} : isDigits text = true ↔ Digits text := by
  simp only [isDigits, Digits, Text.isAsciiDigit, Bool.and_eq_true, Bool.not_eq_true',
    List.isEmpty_eq_false_iff, List.all_eq_true, decide_eq_true_eq]

/-- A number is written with digits. -/
theorem digits_toString (n : Nat) : Digits (toString n).toList := by
  refine isDigits_iff.mp (Bool.and_eq_true_iff.mpr ⟨?_, List.all_eq_true.mpr ?_⟩)
  · rw [toList_toString]
    simp [Nat.toDigits_ne_nil]
  · exact fun _ => isAsciiDigit_of_mem_toString

theorem Digits.underscore_notMem {text : List Char} (h : Digits text) : '_' ∉ text :=
  fun hmem => absurd (h.2 '_' hmem).2 (by decide)

/-- Digits are characters of names. -/
theorem Digits.isNameChar {text : List Char} (h : Digits text) :
    ∀ c ∈ text, Text.isNameChar c = true := by
  intro c hc
  have hdigit := List.all_eq_true.mp (Bool.and_eq_true_iff.mp (isDigits_iff.mpr h)).2 c hc
  rw [Text.isNameChar, hdigit, Bool.or_true, Bool.true_or]

/-- A text is recognised as a category just if it is the name of one. -/
theorem Category.isSome_ofName?_iff {name : String} :
    (Category.ofName? name).isSome = true ↔ ∃ category : Category, category.name = name := by
  simp only [Category.ofName?, List.find?_isSome, decide_eq_true_eq, Category.mem_all, true_and]

/-- The first two underscores of a name cut it, so its number and its category have none. -/
theorem isPlaceholderName_iff {name : List Char} :
    isPlaceholderName name = true ↔
      ∃ query category ordinal, Digits query ∧ Digits ordinal ∧
        name = query ++ '_' :: (Category.name category).toList ++ '_' :: ordinal := by
  constructor
  · intro h
    unfold isPlaceholderName at h
    split at h
    · cases h
    rename_i query rest hquery
    split at h
    · cases h
    rename_i word ordinal hword
    simp only [Bool.and_eq_true, isDigits_iff, Category.isSome_ofName?_iff] at h
    obtain ⟨⟨hnumber, category, hcategory⟩, hordinal⟩ := h
    refine ⟨query, category, ordinal, hnumber, hordinal, ?_⟩
    rw [Text.eq_append_of_cutAt hquery, Text.eq_append_of_cutAt hword, hcategory,
      String.toList_ofList, List.append_assoc, List.cons_append]
  · rintro ⟨query, category, ordinal, hnumber, hordinal, rfl⟩
    rw [List.append_assoc, List.cons_append, isPlaceholderName,
      Text.cutAt_append hnumber.underscore_notMem]
    dsimp only
    rw [Text.cutAt_append category.underscore_notMem_name]
    simp only [Bool.and_eq_true, isDigits_iff, Category.isSome_ofName?_iff, String.ofList_toList]
    exact ⟨⟨hnumber, category, rfl⟩, hordinal⟩

/-- The texts that are recognised: a mark, digits, the name of a category and digits, joined by
underscores. -/
theorem isPlaceholder_iff {text : String} :
    isPlaceholder text = true ↔
      ∃ query category ordinal, Digits query ∧ Digits ordinal ∧
        text.toList = '@' :: query ++ '_' :: (Category.name category).toList ++ '_' :: ordinal := by
  unfold isPlaceholder
  split
  · rename_i name htext
    rw [isPlaceholderName_iff, htext]
    simp only [List.cons_append, List.cons.injEq, true_and]
  · rename_i hmark
    simp only [Bool.false_eq_true, List.cons_append, false_iff, not_exists, not_and]
    exact fun query category ordinal _ _ htext => hmark _ htext

/-- Text that stands for a bound value is a mark with a name behind it. -/
theorem exists_isName_of_isPlaceholder {text : String} (h : isPlaceholder text = true) :
    ∃ name, IsName name ∧ text = "@" ++ name := by
  obtain ⟨query, category, ordinal, hquery, hordinal, htext⟩ := isPlaceholder_iff.mp h
  refine ⟨String.ofList (query ++ '_' :: (Category.name category).toList ++ '_' :: ordinal), ?_, ?_⟩
  · have hunderscore : Text.isNameChar '_' = true := by decide
    rw [IsName, String.toList_ofList]
    simp only [List.forall_mem_append, List.forall_mem_cons]
    exact ⟨⟨hquery.isNameChar, hunderscore, category.isName_name⟩, hunderscore,
      hordinal.isNameChar⟩
  · rw [← String.toList_inj, htext]
    simp

/-- A name that is given is recognised behind a mark. -/
theorem isPlaceholder_placeholderName (query : Nat) (category : Category) (ordinal : Nat) :
    isPlaceholder ("@" ++ placeholderName query category ordinal) = true := by
  refine isPlaceholder_iff.mpr ⟨_, category, _, digits_toString query, digits_toString ordinal, ?_⟩
  rw [String.toList_append, toList_placeholderName]
  simp

end recognised

section found

/-- A reference is a mark with the longest name behind it. -/
theorem mem_referencesIn_iff {text : List Char} {name : String} :
    name ∈ referencesIn text ↔
      ∃ before after, text = before ++ '@' :: after ∧
        after.takeWhile Text.isNameChar = name.toList := by
  constructor
  · intro h
    induction text with
    | nil => cases h
    | cons c rest ih =>
        have hbehind : name ∈ referencesIn rest → ∃ before after,
            c :: rest = before ++ '@' :: after ∧
              after.takeWhile Text.isNameChar = name.toList := by
          intro hrest
          obtain ⟨before, after, hsplit, hname⟩ := ih hrest
          exact ⟨c :: before, after, by rw [hsplit, List.cons_append], hname⟩
        rw [referencesIn] at h
        split at h
        · rename_i hmark
          rcases List.mem_cons.mp h with hname | hrest
          · exact ⟨[], rest, by rw [hmark, List.nil_append], by rw [hname, String.toList_ofList]⟩
          · exact hbehind hrest
        · exact hbehind h
  · rintro ⟨before, after, rfl, hname⟩
    refine mem_referencesIn_append ?_
    rw [referencesIn, if_pos rfl, hname, String.ofList_toList]
    exact List.mem_cons_self

/-- What is recognised behind a mark is a name. -/
theorem isName_of_isPlaceholder {name : String} (h : isPlaceholder ("@" ++ name) = true) :
    IsName name := by
  obtain ⟨other, hname, heq⟩ := exists_isName_of_isPlaceholder h
  have hsame : name = other := by simpa [← String.toList_inj] using heq
  rwa [hsame]

/-- A statement refers to a name just where a mark is in front of it and it cannot be read on. -/
theorem mentions_iff_exists {aql name : String} (h : IsName name) :
    mentions aql name = true ↔
      ∃ before after, aql.toList = before ++ '@' :: after ∧
        after.takeWhile Text.isNameChar = name.toList := by
  rw [mentions_iff h, references, mem_referencesIn_iff]

end found

/-- **The names of bound values are a code.** The name that a store gives is the number of its
query, the category and the next ordinal; such a name is recognised behind a mark and determines the
three; the texts that are recognised are just those that are built like a name, from any digits; and
a statement refers to a name of this form just if one of its marks is followed by the name as the
longest run of letters, digits and underscores. -/
theorem placeholders_are_a_code :
    (∀ (store : Store) (value : Value) (category : Category),
      (store.add value category).1 =
        placeholderName store.id category (store.given category + 1)) ∧
    (∀ (query : Nat) (category : Category) (ordinal : Nat),
      isPlaceholder ("@" ++ placeholderName query category ordinal) = true) ∧
    (∀ (query query' : Nat) (category category' : Category) (ordinal ordinal' : Nat),
      placeholderName query category ordinal = placeholderName query' category' ordinal' ↔
        query = query' ∧ category = category' ∧ ordinal = ordinal') ∧
    (∀ text : String, isPlaceholder text = true ↔
      ∃ query category ordinal, Digits query ∧ Digits ordinal ∧
        text.toList = '@' :: query ++ '_' :: (Category.name category).toList ++ '_' :: ordinal) ∧
    (∀ aql name : String, isPlaceholder ("@" ++ name) = true →
      (mentions aql name = true ↔
        ∃ before after, aql.toList = before ++ '@' :: after ∧
          after.takeWhile Text.isNameChar = name.toList)) := by
  refine ⟨fun _ _ _ => rfl, isPlaceholder_placeholderName, ?_, fun _ => isPlaceholder_iff, ?_⟩
  · intro query query' category category' ordinal ordinal'
    constructor
    · exact placeholderName_inj
    · rintro ⟨rfl, rfl, rfl⟩
      rfl
  · intro aql name h
    exact mentions_iff_exists (isName_of_isPlaceholder h)

/-- A reference to the tenth value is none to the first one. -/
theorem tenth_value_apart :
    isPlaceholder "@1_where_1" = true ∧
      ¬ (∃ before after, "FILTER c.a == @1_where_10 && c.b == @11_where_1".toList =
          before ++ '@' :: after ∧ after.takeWhile Text.isNameChar = "1_where_1".toList) ∧
      ∃ before after, "FILTER c.a == @1_where_1".toList =
          before ++ '@' :: after ∧ after.takeWhile Text.isNameChar = "1_where_1".toList := by
  have h : isPlaceholder ("@" ++ "1_where_1") = true := by decide
  refine ⟨h, ?_, ?_⟩
  · rw [← placeholders_are_a_code.2.2.2.2 "FILTER c.a == @1_where_10 && c.b == @11_where_1"
      "1_where_1" h]
    decide
  · rw [← placeholders_are_a_code.2.2.2.2 "FILTER c.a == @1_where_1" "1_where_1" h]
    decide

end AqlBuilder
